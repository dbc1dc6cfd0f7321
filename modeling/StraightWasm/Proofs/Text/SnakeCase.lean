import Mathlib.Tactic.SplitIfs
import StraightWasm.Text.SnakeCase

/-!
# The characters of converted names

Whoever prints converted names relies on two facts. A converted name consists of underscores and of
lowercase forms of letters and numbers of the name (`Text.JoinsLowered`), and lowercase forms of
letters and numbers have no meaning in a line of text, as the line break has (`Text.LowersPlainly`).
What letters and numbers are, and what their lowercase forms, need not be known. So no converted
name has a character with a meaning (`Text.JoinsLowered.convertsPlainly`).

The conversion to snake case is of this kind. Cutting a text into pieces keeps letters and numbers
only (`Text.mem_piecesFrom`), and cutting a piece into words brings no characters in
(`Text.mem_wordsFrom`). A character that has another one as its lowercase form has a lowercase
letter (`Text.plain_lowercase`).
-/

set_option autoImplicit false
set_option relaxedAutoImplicit false

namespace StraightWasm.Text

/-! ### Conversions -/

/-- Whether a character neither ends a line nor separates the parts of one. -/
def Plain (character : Char) : Prop :=
  character ≠ '\n' ∧ character ≠ ' ' ∧ character ≠ ';'

instance (character : Char) : Decidable (Plain character) :=
  inferInstanceAs (Decidable (_ ∧ _))

section Conversion

variable {alphanumeric : Char → Prop} {lowered : Char → Char → Prop} {convert : String → String}

/-- Whether a conversion joins lowercase forms of letters and numbers of a name by underscores, for
some notion of letters and numbers and of their lowercase forms. -/
def JoinsLowered (alphanumeric : Char → Prop) (lowered : Char → Char → Prop)
    (convert : String → String) : Prop :=
  ∀ name, ∀ character ∈ (convert name).toList,
    character = '_' ∨ ∃ source ∈ name.toList, alphanumeric source ∧ lowered source character

/-- Whether lowercase forms of letters and numbers are plain. -/
def LowersPlainly (alphanumeric : Char → Prop) (lowered : Char → Char → Prop) : Prop :=
  ∀ source, alphanumeric source → ∀ character, lowered source character → Plain character

/-- Whether converted names have plain characters only. -/
def ConvertsPlainly (convert : String → String) : Prop :=
  ∀ name, ∀ character ∈ (convert name).toList, Plain character

theorem JoinsLowered.convertsPlainly (h : JoinsLowered alphanumeric lowered convert)
    (hlowered : LowersPlainly alphanumeric lowered) : ConvertsPlainly convert := by
  intro name character hcharacter
  obtain rfl | ⟨source, -, halphanumeric, hlower⟩ := h name character hcharacter
  · decide
  · exact hlowered source halphanumeric character hlower

end Conversion

/-! ### Words -/

/-- The words of a piece consist of characters that were there before. -/
theorem mem_wordsFrom (words : List (List Char)) (word : List Char) (case : WordCase)
    (piece : List Char) :
    ∀ found ∈ wordsFrom words word case piece, ∀ character ∈ found,
      (∃ earlier ∈ words, character ∈ earlier) ∨ character ∈ word ∨ character ∈ piece := by
  fun_induction wordsFrom words word case piece with
  | case1 words word case =>
    intro found hfound character hcharacter
    exact .inl ⟨found, List.mem_reverse.mp hfound, hcharacter⟩
  | case2 words word case last =>
    intro found hfound character hcharacter
    rw [List.mem_reverse, List.mem_cons] at hfound
    rcases hfound with rfl | hfound
    · rw [List.mem_reverse, List.mem_cons] at hcharacter
      simp only [List.mem_singleton]
      grind
    · exact .inl ⟨found, hfound, hcharacter⟩
  | case3 words word case character following rest passed hcut ih =>
    intro found hfound member hmember
    have hmember := ih found hfound member hmember
    simp only [List.mem_cons, List.mem_reverse, exists_eq_or_imp, List.not_mem_nil] at hmember ⊢
    grind
  | case4 words word case character following rest passed hjoin hcut ih =>
    intro found hfound member hmember
    have hmember := ih found hfound member hmember
    simp only [List.mem_cons, List.mem_reverse, exists_eq_or_imp, List.not_mem_nil] at hmember ⊢
    grind
  | case5 words word case character following rest passed hjoin hcut ih =>
    intro found hfound member hmember
    have hmember := ih found hfound member hmember
    simp only [List.mem_cons] at hmember ⊢
    grind

/-- The pieces of a text consist of letters and numbers of the text. -/
theorem mem_piecesFrom (pieces : List (List Char)) (piece text : List Char) :
    ∀ found ∈ piecesFrom pieces piece text, ∀ character ∈ found,
      (∃ earlier ∈ pieces, character ∈ earlier) ∨ character ∈ piece ∨
        (character ∈ text ∧ isAlphanumeric character) := by
  fun_induction piecesFrom pieces piece text with
  | case1 pieces piece =>
    intro found hfound character hcharacter
    rw [List.mem_reverse, List.mem_cons] at hfound
    rcases hfound with rfl | hfound
    · exact .inr (.inl (List.mem_reverse.mp hcharacter))
    · exact .inl ⟨found, hfound, hcharacter⟩
  | case2 pieces piece character rest halphanumeric ih =>
    intro found hfound member hmember
    have hmember := ih found hfound member hmember
    simp only [List.mem_cons] at hmember ⊢
    rcases hmember with hmember | (rfl | hmember) | hmember
    · exact .inl hmember
    · exact .inr (.inr ⟨.inl rfl, halphanumeric⟩)
    · exact .inr (.inl hmember)
    · exact .inr (.inr ⟨.inr hmember.1, hmember.2⟩)
  | case3 pieces piece character rest hseparator ih =>
    intro found hfound member hmember
    have hmember := ih found hfound member hmember
    simp only [List.mem_cons, List.mem_reverse, exists_eq_or_imp, List.not_mem_nil] at hmember ⊢
    grind

theorem mem_words {text word : List Char} (hword : word ∈ words text) {character : Char}
    (hcharacter : character ∈ word) : character ∈ text ∧ isAlphanumeric character := by
  obtain ⟨piece, hpiece, hword⟩ := List.mem_flatMap.mp hword
  have hmember : character ∈ piece := by
    simpa using mem_wordsFrom [] [] .unknown piece word hword character hcharacter
  simpa using mem_piecesFrom [] [] text piece hpiece character hmember

/-- Whether a character belongs to a lowercase form of a character. A capital sigma has a second
one, for the end of a word. -/
def Lowers (source character : Char) : Prop :=
  character ∈ lowercase source ∨ (source = 'Σ' ∧ character = 'ς')

theorem mem_lowercaseWord {word : List Char} {character : Char}
    (h : character ∈ lowercaseWord word) : ∃ source ∈ word, Lowers source character := by
  unfold lowercaseWord at h
  split at h
  next front hword =>
    rw [List.mem_append, List.mem_singleton, List.mem_flatMap] at h
    obtain ⟨source, hsource, hlower⟩ | rfl := h
    · refine ⟨source, ?_, .inl hlower⟩
      rw [← List.mem_reverse, hword]
      exact List.mem_cons_of_mem _ (List.mem_reverse.mp hsource)
    · refine ⟨'Σ', ?_, .inr ⟨rfl, rfl⟩⟩
      rw [← List.mem_reverse, hword]
      exact List.mem_cons_self
  · obtain ⟨source, hsource, hlower⟩ := List.mem_flatMap.mp h
    exact ⟨source, hsource, .inl hlower⟩

theorem mem_intercalate {α : Type} {separator member : α} {parts : List (List α)}
    (h : member ∈ [separator].intercalate parts) :
    member = separator ∨ ∃ part ∈ parts, member ∈ part := by
  induction parts with
  | nil => simp at h
  | cons part rest ih =>
    cases rest with
    | nil => exact .inr ⟨part, List.mem_cons_self, by simpa using h⟩
    | cons other rest =>
      rw [List.intercalate_cons_cons, List.mem_append, List.mem_append, List.mem_singleton] at h
      obtain (hpart | hseparator) | hrest := h
      · exact .inr ⟨part, List.mem_cons_self, hpart⟩
      · exact .inl hseparator
      · exact (ih hrest).imp_right fun ⟨found, hfound, hmember⟩ ↦
          ⟨found, List.mem_cons_of_mem _ hfound, hmember⟩

/-- A text in snake case consists of underscores and lowercase forms of letters and numbers. -/
theorem joinsLowered_snakeCase : JoinsLowered (isAlphanumeric ·) Lowers snakeCase := by
  intro text character h
  rw [snakeCase, String.toList_ofList] at h
  obtain rfl | ⟨_, hpart, hcharacter⟩ := mem_intercalate h
  · exact .inl rfl
  · obtain ⟨word, hword, rfl⟩ := List.mem_map.mp hpart
    obtain ⟨source, hsource, hlower⟩ := mem_lowercaseWord hcharacter
    obtain ⟨htext, halphanumeric⟩ := mem_words hword hsource
    exact .inr ⟨source, htext, halphanumeric, hlower⟩

/-! ### Lowercase forms -/

theorem plain_of_alphanumeric {character : Char} (h : isAlphanumeric character) :
    Plain character := by
  -- The three characters that are not plain are looked up in the table.
  refine ⟨?_, ?_, ?_⟩ <;> rintro rfl <;> revert h <;> decide +kernel

/-- Numbers from the first lowercase letter on that are no characters stand for the character zero,
which is plain as well. -/
theorem plain_ofNat {code : Nat} (h : 0x61 ≤ code) : Plain (Char.ofNat code) := by
  have hcode : (Char.ofNat code).toNat = code ∨ (Char.ofNat code).toNat = 0 := by
    by_cases hvalid : code.isValidChar
    · rw [Char.ofNat, dif_pos hvalid]
      exact .inl rfl
    · rw [Char.ofNat, dif_neg hvalid]
      exact .inr rfl
  have hne : ∀ character : Char, character.toNat ≠ 0 → character.toNat < 0x61 →
      Char.ofNat code ≠ character := by
    rintro character hpos hlt rfl
    omega
  exact ⟨hne _ (by decide) (by decide), hne _ (by decide) (by decide),
    hne _ (by decide) (by decide)⟩

/-- No lowercase form comes before the first lowercase letter. -/
theorem le_target {shift : Shift} (h : shift ∈ lowercaseShifts) : 0x61 ≤ shift.target := by
  revert shift
  decide +kernel

/-- The lowercase form of a letter or number has plain characters only. -/
theorem plain_lowercase {source character : Char} (hsource : isAlphanumeric source)
    (h : character ∈ lowercase source) : Plain character := by
  unfold lowercase at h
  split_ifs at h
  · rw [List.mem_cons, List.mem_singleton] at h
    obtain rfl | rfl := h <;> decide
  · split at h
    next shift hshift =>
      obtain rfl := List.mem_singleton.mp h
      have htarget := le_target (List.mem_of_find?_eq_some hshift)
      exact plain_ofNat (Nat.le_add_right_of_le htarget)
    · obtain rfl := List.mem_singleton.mp h
      exact plain_of_alphanumeric hsource

theorem lowersPlainly : LowersPlainly (isAlphanumeric ·) Lowers := by
  rintro source hsource character (hlower | ⟨-, rfl⟩)
  · exact plain_lowercase hsource hlower
  · decide

end StraightWasm.Text
