/-
  Texts without the blanks at their ends.

  * `trimLeft_of_plain`, `trimLeft_of_blank`, `trimRight_cons`: one character after the other;
  * `head?_dropWhile`, `head_trimLeft`, `trim_cases`: what stays begins with no blank;
  * `trim_of_ends`: a text without blanks at its ends stays as it is; `trim_trim`: so does a trimmed
    text.
-/
import Mathlib.Data.List.DropRight
import Mathlib.Data.List.TakeWhile
import PocketSql.Text.Basic

namespace PocketSql

section
variable {c : Char} {cs : List Char}

theorem trimLeft_of_plain (h : isBlank c = false) (rest : List Char) :
    trimLeft (c :: rest) = c :: rest := by
  simp [trimLeft, h]

theorem trimLeft_of_blank (h : isBlank c = true) (rest : List Char) :
    trimLeft (c :: rest) = trimLeft rest := by
  simp [trimLeft, h]

@[simp] theorem trimLeft_trimLeft (cs : List Char) : trimLeft (trimLeft cs) = trimLeft cs :=
  List.dropWhile_idempotent _ _

/-- What stays after characters of a class begins with none of them. -/
theorem head?_dropWhile (p : Char → Bool) (cs : List Char) :
    ∀ c ∈ (cs.dropWhile p).head?, p c = false := by
  intro c hc
  have hhead := List.head?_dropWhile_not p cs
  rwa [hc] at hhead

theorem head_trimLeft {rest : List Char} (h : trimLeft cs = c :: rest) : isBlank c = false :=
  head?_dropWhile isBlank cs c (congrArg List.head? h)

theorem trimRight_cons (c : Char) (cs : List Char) : trimRight (c :: cs) =
    if isBlank c = true ∧ trimRight cs = [] then [] else c :: trimRight cs := by
  have hnil : trimRight cs = [] ↔ cs.reverse.dropWhile isBlank = [] := List.reverse_eq_nil_iff
  simp only [hnil]
  rw [trimRight, List.reverse_cons, List.dropWhile_append]
  by_cases hrest : cs.reverse.dropWhile isBlank = []
  · by_cases hc : isBlank c = true
    · simp [hrest, hc]
    · simp [hrest, hc, trimRight]
  · simp [hrest, trimRight]

theorem trimRight_subset (cs : List Char) : trimRight cs ⊆ cs :=
  (List.rdropWhile_prefix isBlank cs).subset

theorem trimRight_trimRight (cs : List Char) : trimRight (trimRight cs) = trimRight cs :=
  List.rdropWhile_idempotent isBlank cs

/-- A trimmed text is empty or begins with no blank. -/
theorem trim_cases (cs : List Char) :
    trim cs = [] ∨ ∃ c rest, trim cs = c :: rest ∧ isBlank c = false := by
  rw [trim]
  cases hleft : trimLeft cs with
  | nil => exact .inl rfl
  | cons c rest =>
    have hc := head_trimLeft hleft
    rw [trimRight_cons, if_neg (by simp [hc])]
    exact .inr ⟨c, _, rfl, hc⟩

/-- A text that neither begins nor ends with a blank stays as it is. -/
theorem trim_of_ends (hhead : ∀ c ∈ cs.head?, isBlank c = false)
    (hlast : ∀ c ∈ cs.getLast?, isBlank c = false) : trim cs = cs := by
  have hright : trimRight cs = cs := by
    refine List.rdropWhile_eq_self_iff.2 fun hne => ?_
    rw [hlast _ (List.getLast?_eq_some_getLast hne)]
    exact Bool.false_ne_true
  cases cs with
  | nil => rfl
  | cons c cs => rw [trim, trimLeft_of_plain (hhead c rfl), hright]

/-- A text without blanks stays as it is. -/
theorem trim_of_plain (h : ∀ c ∈ cs, isBlank c = false) : trim cs = cs :=
  trim_of_ends (fun c hc => h c (List.mem_of_mem_head? hc))
    fun c hc => h c (List.mem_of_mem_getLast? hc)

/-- Nothing more is dropped from a trimmed text. -/
@[simp] theorem trim_trim (cs : List Char) : trim (trim cs) = trim cs := by
  have hleft : trimLeft (trim cs) = trim cs := by
    rcases trim_cases cs with hnil | ⟨c, rest, hcons, hc⟩
    · rw [hnil]
      rfl
    · rw [hcons, trimLeft_of_plain hc]
  rw [trim, hleft, trim, trimRight_trimRight]

end

end PocketSql
